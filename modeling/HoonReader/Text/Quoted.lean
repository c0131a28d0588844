import HoonReader.Bytes
import HoonReader.Text.Printable

/-!
# Quoting a text in a message

A message shows the text it speaks of in quotes, with what has no printed form escaped. This file
fixes the rule for texts (`quoted`) and for runs of bytes (`quotedBytes`, marked by a leading `b`):

* single quotes, or double quotes if a single quote but no double quote occurs in the text;
* a backslash in front of a backslash and of the quote that is used;
* `\n`, `\r` and `\t` for the newline, the carriage return and the tab;
* the code in hexadecimal for every other character without a printed form.
-/

namespace HoonReader.Text

/-! ## 1. Codes -/

/-- The lower-case hexadecimal digit of a value below sixteen. -/
def hexDigit (value : Nat) : Char :=
  if value < 10 then Char.ofNat (48 + value) else Char.ofNat (87 + value)

/-- The last `places` hexadecimal digits of a code. -/
def hexDigits : (places code : Nat) → List Char
  | 0, _ => []
  | places + 1, code => hexDigits places (code / 16) ++ [hexDigit (code % 16)]

/-- The escape that names a character by its code, in two, four or eight digits. -/
def codeEscape (code : Nat) : List Char :=
  if code < 0x100 then '\\' :: 'x' :: hexDigits 2 code
  else if code < 0x10000 then '\\' :: 'u' :: hexDigits 4 code
  else '\\' :: 'U' :: hexDigits 8 code

/-! ## 2. Texts -/

/-- The single quote. -/
abbrev singleQuote : Char := '\x27'

/-- The double quote. -/
abbrev doubleQuote : Char := '\x22'

/-- The quote around a text: the double one only where it saves an escape. -/
def quoteFor (text : List Char) : Char :=
  if text.contains singleQuote && !text.contains doubleQuote then doubleQuote else singleQuote

/-- One character inside quotes; `shown` says which characters appear as they are. -/
def escaped (shown : Char → Bool) (quote c : Char) : List Char :=
  if c = quote ∨ c = '\\' then ['\\', c]
  else if c = '\n' then ['\\', 'n']
  else if c = '\r' then ['\\', 'r']
  else if c = '\t' then ['\\', 't']
  else if shown c then [c]
  else codeEscape c.toNat

/-- The characters in quotes. -/
def inQuotes (shown : Char → Bool) (text : List Char) : List Char :=
  let quote := quoteFor text
  quote :: (text.flatMap (escaped shown quote) ++ [quote])

/-- A text in quotes, as a message shows it. -/
def quoted (text : String) : String :=
  String.ofList (inQuotes isPrintable text.toList)

/-- A run of bytes in quotes, as a message shows it: a byte above 127 is shown by its code. -/
def quotedBytes (bytes : Bytes) : String :=
  String.ofList
    ('b' :: inQuotes (fun c => 0x20 ≤ c.toNat && c.toNat < 0x7f)
      (bytes.map fun b => Char.ofNat b.toNat))

end HoonReader.Text

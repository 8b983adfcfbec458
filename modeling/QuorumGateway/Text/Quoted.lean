import QuorumGateway.Text.Glyph
/-!
Quoted text for messages to an operator. A text stands between double quotes and a character between single ones; the
quote in use, the backslash and whatever cannot be shown by itself are escaped.
-/

namespace QuorumGateway.Text.Quoted

/-- the small hexadecimal digits of a code point, without leading zeros -/
def codeDigits (c : Char) : List Char := Nat.toDigits 16 c.toNat

/-- one character as it stands between quotes of the kind `quote` -/
def escape (quote c : Char) : List Char :=
  if c = quote ∨ c = '\\' then ['\\', c]
  else if c = '\n' then ['\\', 'n']
  else if c = '\t' then ['\\', 't']
  else if c = '\r' then ['\\', 'r']
  else if c = '\x00' then ['\\', '0']
  else if isShown c then [c]
  else ['\\', 'u', '\x7b'] ++ codeDigits c ++ ['\x7d']

def text (s : String) : String := String.ofList ('"' :: s.toList.flatMap (escape '"') ++ ['"'])

def char (c : Char) : String := String.ofList ('\'' :: escape '\'' c ++ ['\''])

end QuorumGateway.Text.Quoted

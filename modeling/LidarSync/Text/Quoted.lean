import LidarSync.Text.Extender
import LidarSync.Text.Unprintable

/-!
# Quoted text

A text between double quotes in which every character can be seen: quotes and backslashes are
escaped, and what is unprintable or joins the character before it is written by its code point.
-/

namespace LidarSync.Text

def codePointEscape (c : Char) : String :=
  "\\u\x7b" ++ String.ofList (Nat.toDigits 16 c.toNat) ++ "\x7d"

def quoteChar (c : Char) : String :=
  match c with
  | '"' => "\\\""
  | '\\' => "\\\\"
  | '\n' => "\\n"
  | '\r' => "\\r"
  | '\t' => "\\t"
  | '\x00' => "\\0"
  | ' ' => " "
  | c => if isExtender c || isUnprintable c then codePointEscape c else String.singleton c

def quoted (s : String) : String :=
  "\"" ++ String.join (s.toList.map quoteChar) ++ "\""

def quotedList (xs : List String) : String :=
  "[" ++ ", ".intercalate (xs.map quoted) ++ "]"

end LidarSync.Text

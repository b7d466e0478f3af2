import TriBench.Text.Combining
import TriBench.Text.Unprintable

/-!
# Quoted text

A text between double quotes in which every character can be seen: quotes and backslashes are
escaped, and characters without a form of their own stand as their code point. Single quotes are
left alone.
-/

namespace TriBench.Text

def codePoint (c : Char) : Text := "\\u\x7b" ++ Nat.toDigits 16 c.toNat ++ ['\x7d']

def escapeChar (c : Char) : Text :=
  if c = '\x00' then "\\0"
  else if c = '\t' then "\\t"
  else if c = '\r' then "\\r"
  else if c = '\n' then "\\n"
  else if c = '"' then "\\\""
  else if c = '\\' then "\\\\"
  else if isCombining c || isUnprintable c then codePoint c
  else [c]

def quoted (s : Text) : Text := '"' :: s.flatMap escapeChar ++ ['"']

def quotedList (items : List Text) : Text :=
  '[' :: joinWith ", " (items.map quoted) ++ [']']

end TriBench.Text

import NoteForms.Text.Hidden

/-! A text in quotes on one line. The quote, the backslash and all characters that
do not show by themselves are escaped, so that what is between the quotes can be
told from a look at it. -/

namespace NoteForms.Text

def shownChar (c : Char) : List Char :=
  if c = '\x22' ∨ c = '\\' then ['\\', c]
  else if c = '\x00' then ['\\', '0']
  else if c = '\t' then ['\\', 't']
  else if c = '\n' then ['\\', 'n']
  else if c = '\r' then ['\\', 'r']
  else if isHidden c then '\\' :: 'u' :: '\x7b' :: Nat.toDigits 16 c.toNat ++ ['\x7d']
  else [c]

def shown (s : String) : String :=
  String.ofList ('\x22' :: s.toList.flatMap shownChar ++ ['\x22'])

end NoteForms.Text

import Wiring.Bytes
import Wiring.Text.Printable

/-!
# Quoted text and shown values

A text is shown in double quotes, with a backslash before what would end it or could not be seen.
A value with named fields is shown by its name and its fields in braces.
-/
namespace Wiring.Text

/-- What stands for a character inside quotes. -/
def literalChar (c : Char) : List Char :=
  if c = '\x00' then ['\\', '0']
  else if c = '\t' then ['\\', 't']
  else if c = '\r' then ['\\', 'r']
  else if c = '\n' then ['\\', 'n']
  else if c = '"' then ['\\', '"']
  else if c = '\\' then ['\\', '\\']
  else if isPrintable c then [c]
  else '\\' :: 'u' :: '\x7b' :: Nat.toDigits 16 c.toNat ++ ['\x7d']

def literal (s : String) : String :=
  String.ofList ('"' :: s.toList.flatMap literalChar ++ ['"'])

/-- A name with its fields, which are already shown. -/
def shownRecord (name : String) (fields : List (String × String)) : String :=
  name ++ " \x7b " ++ ", ".intercalate (fields.map fun f => f.1 ++ ": " ++ f.2) ++ " \x7d"

/-- A name with one value in parentheses. -/
def shownCase (name value : String) : String := name ++ "(" ++ value ++ ")"

def shownOption (value : Option String) : String :=
  match value with
  | some v => shownCase "Some" v
  | none => "None"

def shownList (values : List String) : String := "[" ++ ", ".intercalate values ++ "]"

end Wiring.Text
